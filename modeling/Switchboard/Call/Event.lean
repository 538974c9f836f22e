import Switchboard.Call.Error
import Switchboard.Operation.Phase

/-!
# Switchboard.Call.Event

What an operation reports to its listener.  An operation with one response reports
it or a failure; a stream reports that it is established, then items, and then at
most one of completion and failure.
-/

namespace Switchboard

inductive Event (α : Type) where
  /-- The result of an operation with one response. -/
  | response (x : α)
  /-- A stream is registered under an id. -/
  | established (id : String)
  /-- One item of a stream. -/
  | item (x : α)
  | completed
  | failed (e : ApiError)
  deriving Inhabited

namespace Event

variable {α : Type}

/-- How the operation ends with this event, if it does. -/
def ending? : Event α → Option Ending
  | response _ | completed => some .completed
  | failed _ => some .failed
  | _ => none

/-- Whether nothing can follow. -/
def isTerminal (e : Event α) : Bool := e.ending?.isSome

def value? : Event α → Option α
  | response x | item x => some x
  | _ => none

def error? : Event α → Option ApiError
  | failed e => some e
  | _ => none

end Event
end Switchboard
