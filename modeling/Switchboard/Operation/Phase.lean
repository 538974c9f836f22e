/-!
# Switchboard.Operation.Phase

Where an operation stands:
`created → started → running ⇄ paused → completed | cancelled | failed`.
A stream can be paused as long as it is not over; an operation with one response
only before its request is out.
-/

namespace Switchboard

/-- Whether an operation ends with one response or goes on with items. -/
inductive Kind where
  | single | stream
  deriving DecidableEq, Repr, Inhabited

/-- What a paused operation goes back to. -/
inductive Resumption where
  | started | running
  deriving DecidableEq, Repr, Inhabited

inductive Phase where
  /-- Built, but not started. -/
  | created
  /-- Handed to a worker; nothing is sent yet. -/
  | started
  /-- The request is out, or the subscription registered. -/
  | running
  | paused (back : Resumption)
  | completed
  | cancelled
  | failed
  deriving DecidableEq, Repr, Inhabited

/-- How an operation can end by itself. -/
inductive Ending where
  | completed | failed
  deriving DecidableEq, Repr, Inhabited

def Ending.phase : Ending → Phase
  | completed => .completed
  | failed => .failed

def Resumption.phase : Resumption → Phase
  | started => .started
  | running => .running

namespace Phase

def isTerminal : Phase → Bool
  | completed | cancelled | failed => true
  | _ => false

def name : Phase → String
  | created => "Created"
  | started => "Started"
  | running => "Running"
  | paused _ => "Paused"
  | completed => "Completed"
  | cancelled => "Cancelled"
  | failed => "Failed"

/-- How far an operation has come; a paused one has come as far as what it goes
back to. -/
def rank : Phase → Nat
  | created => 0
  | started => 1
  | running => 2
  | paused .started => 1
  | paused .running => 2
  | completed | cancelled | failed => 3

/-! ## Transitions -/

def begin? : Phase → Option Phase
  | created => some started
  | _ => none

def pause? (kind : Kind) : Phase → Option Phase
  | started => some (paused .started)
  | running => if kind = .stream then some (paused .running) else none
  | _ => none

def resume? : Phase → Option Phase
  | paused back => some back.phase
  | _ => none

def cancel? (p : Phase) : Option Phase := if p.isTerminal then none else some cancelled

end Phase
end Switchboard
