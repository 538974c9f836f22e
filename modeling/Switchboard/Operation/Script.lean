import Switchboard.Operation.Gate

/-!
# Switchboard.Operation.Script

A gate under a script: the steps that callers, workers and listeners take, and what
each of them answers.  A listener may take steps of its own while an event is
delivered to it.
-/

namespace Switchboard.Script

/-- A step at the gate. -/
inductive Step where
  | begin
  | pause
  | resume
  | cancel
  | state
  /-- Sets the hook that a cancellation runs. -/
  | hook (label : String)
  /-- Lets a worker ask whether it may go on. -/
  | enter (label : String)
  /-- Keeps a new task. -/
  | task
  | deliver (inside : List Step)
  | finish (last : Phase) (inside : List Step)
  deriving Inhabited

/-- What a step answers. -/
inductive Answer where
  | flag (b : Bool)
  | text (s : String)
  /-- What became of an event, and what the steps of the listener answered, if it
  got the event. -/
  | outcome (d : Delivery) (inside : Option (List Answer))
  deriving Inhabited

/-- A gate with what the script has put around it. -/
structure State where
  gate : Gate Nat String
  /-- The workers that wait, with the last change that each knows of. -/
  waiting : List (String × Nat) := []
  /-- How many tasks there are. -/
  tasks : Nat := 0
  aborted : List Nat := []
  /-- The hooks that have run. -/
  ran : List String := []

def State.create (kind : Kind) : State := { gate := Gate.create kind }

/-- A control call: the gate, and whether the call was valid. -/
def State.control (s : State) (g : Option (Gate Nat String)) : State × Answer :=
  match g with
  | some gate => ({ s with gate }, .flag true)
  | none => (s, .flag false)

def State.cancel (s : State) : State × Answer :=
  match s.gate.cancelAll with
  | some (gate, task, hook) =>
    ({ s with gate, aborted := s.aborted ++ task.toList, ran := s.ran ++ hook.toList }, .flag true)
  | none => (s, .flag false)

def State.enter (s : State) (label : String) : State × Answer :=
  let (gate, r) := s.gate.poll (s.waiting.lookup label)
  let others := s.waiting.filter (·.1 ≠ label)
  match r with
  | .inl b => ({ s with gate, waiting := others }, .flag b)
  | .inr seen => ({ s with gate, waiting := (label, seen) :: others }, .text "pending")

def State.task (s : State) : State × Answer :=
  let (gate, task) := s.gate.setTask s.tasks
  ({ s with gate, tasks := s.tasks + 1, aborted := s.aborted ++ task.toList }, .flag true)

mutual
def step (s : State) : Step → State × Answer
  | .begin => s.control s.gate.begin
  | .pause => s.control s.gate.pause
  | .resume => s.control s.gate.resume
  | .cancel => s.cancel
  | .state => (s, .text s.gate.phase.name)
  | .hook label => ({ s with gate := s.gate.onCancel label }, .flag true)
  | .enter label => s.enter label
  | .task => s.task
  | .deliver inside =>
    match s.gate.deliver with
    | .delivered =>
      let (s, answers) := steps s inside
      (s, .outcome .delivered (some answers))
    | d => (s, .outcome d none)
  | .finish last inside =>
    match s.gate.finish last with
    | (gate, .delivered) =>
      let (s, answers) := steps { s with gate } inside
      (s, .outcome .delivered (some answers))
    | (_, d) => (s, .outcome d none)

/-- Takes steps in turn. -/
def steps (s : State) : List Step → State × List Answer
  | [] => (s, [])
  | t :: rest =>
    let (s, a) := step s t
    let (s, as) := steps s rest
    (s, a :: as)
end

end Switchboard.Script
