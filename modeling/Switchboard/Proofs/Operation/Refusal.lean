import Switchboard.Proofs.Operation.EndingToCome

/-!
# Switchboard.Proofs.Operation.Refusal

An operation with one response tells its listener what it was answered.  So one whose
request is refused says that, and never that it has completed; and so does a stream whose
registration is refused.

* `AnswersGiven` — what was heard, and what the worker is about to tell, was answered;
* `answersGiven_run` — so it is after every run;
* `Fails` — how an operation stands that is refused what it asks for;
* `fails_of_answers` — so it stands if its request is answered with refusals alone;
* `run_refused`, `fails_of_registrations` — and so does a stream whose registration is refused.
-/

namespace Switchboard.Operation

variable {α : Type} {plan : Plan α} {op op' : Operation α} {given : Except ApiError α → Prop}

/-! ## Answers -/

/-- What was heard, and what the worker is about to tell, are answers that were given. -/
structure AnswersGiven (given : Except ApiError α → Prop) (op : Operation α) : Prop where
  stage : ∀ r, op.stage = .answered r → given r
  heard : ∀ e ∈ op.heard, ∃ r, given r ∧ e = answerEvent r

/-- Nothing more was heard, and there is nothing to tell. -/
theorem AnswersGiven.frame (h : AnswersGiven given op) (hh : op'.heard = op.heard)
    (hs : ∀ r, op'.stage ≠ .answered r) : AnswersGiven given op' where
  stage r hr := absurd hr (hs r)
  heard e he := h.heard e (hh ▸ he)

theorem Work.answersGiven (hk : plan.kind = .single) {r : Operation α × List Demand}
    (h : Work plan op r) (ha : HeardByStage op op.stage) (ht : AnswersGiven given op) :
    AnswersGiven given r.1 := by
  cases h with
  | stop | look | lookAgain | enter | send | wait | refuse | drop =>
    exact ht.frame rfl fun _ he => by cases he
  | register _ hstream => cases hk.symm.trans hstream
  | @report a hs =>
      refine ⟨fun _ he => (by cases he), fun e he => ?_⟩
      rw [heard_notify] at he
      rcases List.mem_append.1 he with he | he
      · exact ht.heard e he
      · exact ⟨a, ht.stage a hs, List.mem_singleton.1 he⟩
  | @pursue p todo seen =>
      obtain ⟨c, slot, next, -, hr⟩ := op.hear_some todo seen p
      rw [hr]
      exact ht.frame rfl fun _ he => by cases he
  | @call control rest seen =>
      rw [hear_call]
      exact ht.frame (by simp [Operation.heard]) fun _ he => by cases he
  | @heard seen => cases seen <;> exact ht.frame rfl fun _ he => by cases he
  | store hs | giveUp hs | establish hs | watch hs | deliver hs | settle hs | shut hs | leave hs
  | await hs | take hs | turnAway hs | flushAgain hs | close hs | finish hs =>
      rw [hs] at ha; exact ha.elim

theorem answersGiven_step (hk : plan.kind = .single) (ha : HeardByStage op op.stage)
    (ht : AnswersGiven given op)
    {m : Move α} (hm : ∀ r, m = .answer r → given r) : AnswersGiven given (op.step plan m).1 := by
  have h := step_cases plan op m
  generalize op.step plan m = r at h ⊢
  cases h with
  | pursue => rw [follow_fst]; exact ⟨ht.stage, ht.heard⟩
  | work _ hw => exact hw.answersGiven hk ha ht
  | @answer _ r => exact ⟨fun a hr => by cases hr; exact hm _ rfl, ht.heard⟩
  | grant hs | fail hs | removed hs => rw [hs] at ha; exact ha.elim
  | nothing | turn | message | hangUp => exact ⟨ht.stage, ht.heard⟩

/-- An operation with one response tells its listener what it was answered. -/
theorem answersGiven_run (hk : plan.kind = .single) {moves : List (Move α)}
    (hg : ∀ r, .answer r ∈ moves → given r) :
    AnswersGiven given (run plan moves (create plan)).1 := by
  suffices ∀ op : Operation α, HeardByStage op op.stage → AnswersGiven given op →
      AnswersGiven given (run plan moves op).1 from
    this _ rfl ⟨nofun, nofun⟩
  induction moves with
  | nil => exact fun _ _ ht => ht
  | cons m rest ih =>
      intro op ha ht
      have hm := answersGiven_step hk ha ht (m := m) fun r hr => hg r (hr ▸ List.mem_cons_self)
      exact ih (fun r hr => hg r (List.mem_cons_of_mem m hr)) _ (heardByStage_step hk op m ha) hm

/-! ## Refusals -/

/-- A worker that has something pending as it begins to watch a running stream delivers that in
two steps. -/
theorem run_watching (plan : Plan α) (hseat : op.isSeated = true) (hs : op.stage = .watching)
    (hp : op.phase = .running) {e : Event α} {rest : List (Event α)} (hq : op.pending = e :: rest)
    (first second : Bool) :
    (run plan [.work first, .work second] op).1 =
      ({ op.goto (.flushing op.gate.version) with pending := rest }.accept e).notify plan e
        (some op.gate.version) := by
  let flushing := op.goto (.flushing op.gate.version)
  have hwatch : op.work? plan first = some (flushing, []) := by
    rw [work?_eq_workAt hseat (by simp [hs, stopsAt]), hs]
    rfl
  have hseat' : flushing.isSeated = true := hseat
  have hq' : flushing.pending = e :: rest := hq
  have hflush : flushing.work? plan second = some (flushing.flush plan op.gate.version, []) := by
    rw [work?_eq_workAt hseat' (by simp [flushing, goto, stopsAt])]
    rfl
  simp only [run, step, hwatch, hflush, Option.getD_some]
  exact flush_of_running hq' hp

/-- What the endpoint refuses to a stream that runs reaches the listener in two steps. -/
theorem run_refused (hs : op.stage = .registering) (hseat : op.isSeated = true)
    (hp : op.phase = .running) (hh : op.heard = []) (hq : op.pending = []) (e : ApiError)
    (first second : Bool) :
    let after := (run plan [.registered (.error e), .work first, .work second] op).1
    after.phase = .failed ∧ after.heard = [.failed e] := by
  let told : Operation α :=
    { op with listening := false, pending := [.failed e], stage := .watching }
  have hrefused : op.step plan (.registered (.error e)) = (told, []) := by
    simp [told, step, registered, hs, hq]
  have hseat' : told.isSeated = true := hseat
  have hrun := run_watching plan hseat' rfl hp rfl first second
  intro after
  have hafter : after = (run plan [.work first, .work second] told).1 := by
    rw [show told = (op.step plan (.registered (.error e))).1 from congrArg Prod.fst hrefused.symm]
    rfl
  rw [hafter, hrun, heard_notify]
  exact ⟨rfl, congrArg (· ++ [Event.failed e]) hh⟩

/-- An operation that is refused what it asks for: the listener hears of a refusal or of nothing,
the operation ends by it unless it is cancelled, and as soon as the refusal is there; a stream
may be paused, and then it is when that is over. -/
structure Fails (plan : Plan α) (refusals : ApiError → Prop) (op : Operation α) : Prop where
  heard : op.heard = [] ∨ ∃ e, refusals e ∧ op.heard = [.failed e]
  ended : op.phase.isTerminal = true →
    op.phase = .cancelled ∧ op.heard = [] ∨
      ∃ e, refusals e ∧ op.phase = .failed ∧ op.heard = [.failed e]
  answered : op.stage = .sending → op.phase ≠ .cancelled → ∀ e first,
    let after := (run plan [.answer (.error e), .work first] op).1
    after.phase = .failed ∧ after.heard = [.failed e]
  registered : op.stage = .registering → op.phase = .running → ∀ e first second,
    let after := (run plan [.registered (.error e), .work first, .work second] op).1
    after.phase = .failed ∧ after.heard = [.failed e]

variable {refusals : ApiError → Prop}

/-- What is heard of an operation that is over, if all that can be heard is a refusal. -/
theorem ended_of_heard (hacc : EndingAgrees op)
    (hh : op.heard = [] ∨ ∃ e, refusals e ∧ op.heard = [.failed e])
    (ht : op.phase.isTerminal = true) :
    op.phase = .cancelled ∧ op.heard = [] ∨
      ∃ e, refusals e ∧ op.phase = .failed ∧ op.heard = [.failed e] := by
  by_cases hc : op.phase = .cancelled
  · refine .inl ⟨hc, hh.resolve_right ?_⟩
    rintro ⟨e, -, hh⟩
    have hp :=
      hacc.phase_eq (e := .failed e) (k := .failed) (by rw [hh]; exact List.mem_cons_self) rfl
    rw [hc] at hp
    cases hp
  · obtain ⟨k, hk⟩ := Phase.ending_of_isTerminal ht hc
    obtain ⟨before, last, hlast, hend, -⟩ := hacc.ended k hk
    obtain ⟨e, he, hh⟩ := hh.resolve_left (by rw [hlast]; simp)
    refine .inr ⟨e, he, ?_, hh⟩
    exact hacc.phase_eq (e := .failed e) (k := .failed) (by rw [hh]; exact List.mem_cons_self) rfl

/-- An operation with one response that is answered with refusals, and with nothing else,
fails by one unless it is cancelled. -/
theorem fails_of_answers (hk : plan.kind = .single) {moves : List (Move α)}
    (hg : ∀ r, .answer r ∈ moves → ∃ e, refusals e ∧ r = .error e) :
    Fails plan refusals (run plan moves (create plan)).1 := by
  have ht := answersGiven_run hk hg
  have ha := heardByStage_run hk moves
  have hm := workerInvariant_run_single hk moves
  have hacc := endingAgrees_run plan moves
  generalize (run plan moves (create plan)).1 = op at ht ha hm hacc ⊢
  have hheard : op.heard = [] ∨ ∃ e, refusals e ∧ op.heard = [.failed e] := by
    rcases ha.heard_cases with hh | ⟨r, hh⟩
    · exact .inl hh
    · obtain ⟨a, ⟨e, hr, rfl⟩, he⟩ := ht.heard _ (by rw [hh]; exact List.mem_cons_self)
      exact .inr ⟨e, hr, hh.trans (congrArg (fun e => [e]) he)⟩
  refine ⟨hheard, ended_of_heard hacc hheard, fun hs hopen e first => ?_, fun hs => ?_⟩
  · have hnone : op.heard = [] := by rw [hs] at ha; exact ha
    have hseat := hm.spawned (by rw [hs]; nofun) hopen
    have hp := hm.running hacc ha (.inl hs) hopen
    obtain ⟨hh, k, hend, hphase⟩ := run_answer plan (.error e) hs hseat hp first
    cases hend
    rw [hnone] at hh
    exact ⟨hphase, hh⟩
  · rw [hs] at ha
    exact ha.elim

/-- The script of a stream that was refused is the refusal. -/
theorem script_of_refused {f : Feed} (decode : Json → Except ApiError α)
    (ho : ∀ r, f.outcome = some r → ∃ e, refusals e ∧ r = .error e) :
    f.script decode = [] ∨ ∃ e, refusals e ∧ f.script decode = [.failed e] := by
  unfold Feed.script
  cases hr : f.outcome with
  | none => exact .inl rfl
  | some r =>
      obtain ⟨e, he, rfl⟩ := ho r hr
      exact .inr ⟨e, he, rfl⟩

/-- What the endpoint has answered is what it was heard to answer. -/
theorem outcome_feed (plan : Plan α) {given : Except ApiError String → Prop} {moves : List (Move α)}
    (hg : ∀ r, .registered r ∈ moves → given r) (op : Operation α) {f : Feed}
    (hf : ∀ r, f.outcome = some r → given r) :
    ∀ r, (feed plan moves op f).outcome = some r → given r := by
  induction moves generalizing op f with
  | nil => exact hf
  | cons m rest ih =>
      refine ih (fun r hr => hg r (List.mem_cons_of_mem m hr)) _ fun r hr => ?_
      cases m with
      | registered a =>
          simp only [Feed.after] at hr
          split at hr
          · cases hr; exact hg _ List.mem_cons_self
          · exact hf r hr
      | message x =>
          simp only [Feed.after] at hr
          split at hr <;> exact hf r hr
      | _ => exact hf r hr

/-- A stream whose registration is refused fails by that unless it is cancelled. -/
theorem fails_of_registrations (hk : plan.kind = .stream) {moves : List (Move α)}
    (hg : ∀ r, .registered r ∈ moves → ∃ e, refusals e ∧ r = .error e) :
    Fails plan refusals (run plan moves (create plan)).1 := by
  have hacc := endingAgrees_run plan moves
  have hseated := seated_run plan moves
  have hf := feedInvariant_run hk moves
  have ho := outcome_feed plan hg (create plan) (f := {}) nofun
  generalize (run plan moves (create plan)).1 = op, feed plan moves (create plan) {} = f
    at hacc hseated hf ho ⊢
  have hheard : op.heard = [] ∨ ∃ e, refusals e ∧ op.heard = [.failed e] := by
    have hprefix := hf.prefix_script
    rcases script_of_refused plan.decode ho with hs | ⟨e, he, hs⟩
    · rw [hs] at hprefix
      exact .inl (List.prefix_nil.1 hprefix)
    · rw [hs] at hprefix
      exact (List.prefix_cons_iff.1 hprefix).imp_right fun ⟨l, hl, hnil⟩ =>
        ⟨e, he, by rw [hl, List.prefix_nil.1 hnil]⟩
  refine ⟨hheard, ended_of_heard hacc hheard, fun hs => ?_, fun hs hp e first second => ?_⟩
  · rw [hs] at hf
    exact hf.elim
  · rw [hs] at hf
    have hseat : op.isSeated = true := hseated.resolve_left (by rw [hs]; nofun)
    exact run_refused hs hseat hp hf.1.heard hf.1.pending e first second

end Switchboard.Operation
