import Switchboard.Proofs.Operation.Work

/-!
# Switchboard.Proofs.Operation.HeldIds

Who has to give up the subscription of an operation.  Its id goes from hand to hand: from
the endpoint to the worker, from the worker to the slot, and from there to the worker or to
the hook of a cancellation, whichever comes first.  No step loses it and none doubles it.

* `heldIds` — the ids in the hands of the worker and in the slot;
* `SlotEmptied` — where the slot is empty;
* `KeepsIds` — what a step leaves is what there was;
* `Work.keepsIds`, `step_keepsIds` — every step does, but for what the endpoint reports.
-/

namespace Switchboard

variable {α : Type}

namespace Stage

/-- The id in the hands of a worker: a new one, or one that it is having removed. -/
def ids : Stage α → List String
  | storing id | unregistering id => [id]
  | _ => []

/-- Whether a worker may still register its subscription. -/
def isAhead : Stage α → Bool
  | arriving | checking _ | waiting _ | admitted | registering => true
  | _ => false

/-- Whether a worker that got here may have left an id in the slot. -/
def mayFillSlot : Stage α → Bool
  | confirming _ | watching | flushing _ | hearing _ _ (some _) | deciding _ | selecting _
  | closing => true
  | _ => false

/-- From one stage to another with the same in hand. -/
structure Leads (s s' : Stage α) : Prop where
  ids : s'.ids = s.ids
  mayFillSlot : s'.mayFillSlot = false → s.mayFillSlot = false
  ahead : s'.isAhead = true → s.isAhead = true
  registering : s ≠ .registering

/-- While the listener hears an event, nothing changes hands. -/
theorem leads_hearing (next next' : Option Pursuit) (todo todo' : List Control)
    (seen : Option Nat) : Leads (α := α) (hearing next todo seen) (hearing next' todo' seen) := by
  cases seen <;> constructor <;> simp [ids, mayFillSlot, isAhead]

end Stage

namespace Operation

variable {plan : Plan α} {op op' : Operation α} {r : Operation α × List Demand}

/-- The ids of subscriptions that the operation has to give up. -/
def heldIds (op : Operation α) : List String := op.stage.ids ++ op.slot.toList

/-- Nothing is in the slot but what the worker has left there. -/
def SlotEmptied (op : Operation α) : Prop := op.stage.mayFillSlot = false → op.slot = none

/-- What a step leaves to be given up is what there was, and a worker that has registered
does not go back. -/
structure KeepsIds (op : Operation α) (r : Operation α × List Demand) : Prop where
  slotEmptied : r.1.SlotEmptied
  heldIds : (r.1.heldIds ++ released r.2).Perm op.heldIds
  ahead : r.1.stage.isAhead = true → op.stage.isAhead = true
  registering : op.stage = .registering → r.1.stage = .registering

/-! ## Steps that leave the slot -/

theorem KeepsIds.of_eq (ht : SlotEmptied op) (hstage : r.1.stage = op.stage)
    (hslot : r.1.slot = op.slot)
    (hdemands : released r.2 = []) : KeepsIds op r where
  slotEmptied := fun hk => hslot.trans (ht (hstage ▸ hk))
  heldIds := by simp [Operation.heldIds, hdemands, hslot, hstage]
  ahead := fun ha => hstage ▸ ha
  registering := fun hs => hstage.trans hs

theorem KeepsIds.trans (h : KeepsIds op (op', [])) (h' : KeepsIds op' r) : KeepsIds op r where
  slotEmptied := h'.slotEmptied
  heldIds := by
    have hfirst := h.heldIds
    rw [show released [] = [] from rfl, List.append_nil] at hfirst
    exact h'.heldIds.trans hfirst
  ahead := fun ha => h.ahead (h'.ahead ha)
  registering := fun hs => h'.registering (h.registering hs)

/-- Most steps of a worker concern neither its hands nor the slot. -/
theorem KeepsIds.of_leads (ht : SlotEmptied op) (hslot : r.1.slot = op.slot)
    (hdemands : released r.2 = []) (hleads : op.stage.Leads r.1.stage) : KeepsIds op r where
  slotEmptied := fun hk => hslot.trans (ht (hleads.mayFillSlot hk))
  heldIds := by simp [Operation.heldIds, hdemands, hslot, hleads.ids]
  ahead := hleads.ahead
  registering := fun hs => absurd hs hleads.registering

/-- A step of a control call gives the slot to the hook, if there is one to run. -/
theorem KeepsIds.follow (ht : SlotEmptied op) (c : Controller) (hook : Bool) :
    KeepsIds op (op.follow c hook) := by
  cases hook with
  | false => exact .of_eq ht rfl rfl rfl
  | true =>
      have hreleased : released (op.slot.toList.map .release) = op.slot.toList := by
        cases op.slot <;> rfl
      refine ⟨fun _ => rfl, ?_, id, id⟩
      simp [Operation.follow, runHook, Operation.heldIds, hreleased]

/-! ## Steps of the worker -/

/-- The worker takes its subscription over, and gives it up, but never loses it. -/
theorem Work.keepsIds (hw : Work plan op r) (ht : SlotEmptied op) : KeepsIds op r := by
  cases hw with
  | stop hs =>
      refine .of_leads ht rfl rfl ?_
      cases hstage : op.stage with
      | arriving | waiting _ | sending =>
          constructor <;> simp [goto, Stage.ids, Stage.mayFillSlot, Stage.isAhead]
      | _ => simp [hstage, stopsAt] at hs
  | look hs | lookAgain hs | enter hs | send hs | register hs | refuse hs | wait hs | report hs
  | drop hs | giveUp hs | establish hs | watch hs | deliver hs | settle hs | shut hs | leave hs
  | await hs | take hs | turnAway hs | flushAgain hs =>
      refine .of_leads ht rfl rfl ?_
      rw [hs]
      constructor <;>
        simp [goto, withGate, notify, accept, Stage.ids, Stage.mayFillSlot, Stage.isAhead]
  | @store id hs =>
      -- nothing is overwritten: only the worker fills the slot, and it has not yet
      have hslot : op.slot = none := ht (by rw [hs]; rfl)
      have hheld : op.heldIds = [id] := by simp [heldIds, hs, hslot, Stage.ids]
      exact ⟨fun hk => (by cases hk), by rw [hheld]; rfl, fun ha => (by cases ha),
        fun hr => (by rw [hs] at hr; cases hr)⟩
  | @pursue p todo seen hs =>
      have hhearing : KeepsIds op
          ({ op with stage := .hearing (op.controller.pursue p).2.1 todo seen }, []) :=
        .of_leads ht rfl rfl (by rw [hs]; exact Stage.leads_hearing ..)
      exact hhearing.trans (.follow hhearing.slotEmptied _ _)
  | call hs => exact .of_leads ht rfl rfl (by rw [hs]; exact Stage.leads_hearing ..)
  | @heard seen hs =>
      refine .of_leads ht rfl rfl ?_
      rw [hs]
      cases seen <;> constructor <;> simp [hear, Stage.ids, Stage.mayFillSlot, Stage.isAhead]
  | @close id hs hslot =>
      -- the hook was not faster, and it finds the slot empty from now on
      have hheld : op.heldIds = [id] := by simp [heldIds, hs, hslot, Stage.ids]
      exact ⟨fun _ => rfl, by rw [hheld]; rfl, fun ha => (by cases ha),
        fun hr => (by rw [hs] at hr; cases hr)⟩
  | finish hs hslot =>
      have hheld : op.heldIds = [] := by simp [heldIds, hs, hslot, Stage.ids]
      refine ⟨fun _ => hslot, ?_, fun ha => (by cases ha), fun hr => (by rw [hs] at hr; cases hr)⟩
      rw [hheld]
      simp [heldIds, goto, hslot, Stage.ids, released]

/-! ## Steps of the operation -/

/-- Whether a move tells the worker that the endpoint is done. -/
def Move.reports : Move α → Bool
  | .registered _ | .unregistered => true
  | _ => false

theorem slotEmptied_create (plan : Plan α) : (create plan).SlotEmptied := fun _ => rfl

/-- Whatever happens to an operation, nothing is lost and nothing is doubled. -/
theorem step_keepsIds (ht : SlotEmptied op) (m : Move α) (hm : m.reports = false) :
    KeepsIds op (op.step plan m) := by
  cases m with
  | control c =>
      simp only [step]
      split
      · exact .of_eq ht rfl rfl rfl
      · exact .of_eq ht rfl rfl rfl
  | pursue i =>
      simp only [step]
      split
      · exact .of_eq ht rfl rfl rfl
      · exact .follow ht _ _
  | work first =>
      rcases op.step_work plan first with hw | ⟨-, hw⟩
      · rw [hw]
        exact .of_eq ht rfl rfl rfl
      · exact hw.keepsIds ht
  | answer a =>
      simp only [step, answer]
      split
      · next hs _ =>
        refine .of_leads ht rfl rfl ?_
        rw [hs]
        constructor <;> simp [goto, Stage.ids, Stage.mayFillSlot, Stage.isAhead]
      · exact .of_eq ht rfl rfl rfl
  | message x =>
      simp only [step, message]
      split
      · exact .of_eq ht rfl rfl rfl
      · exact .of_eq ht rfl rfl rfl
  | hangUp => exact .of_eq ht rfl rfl rfl
  | registered _ | unregistered => cases hm

end Operation
end Switchboard
