/-
Unwind.Script.Notes — what the parts of a running script share: the handles by
name, the counts that its predicates and callbacks keep, and its log.
-/
import Unwind.Hook.Program
import Unwind.Script.Step

namespace Unwind.Script

/-- A line of a script's log: what a scripted hook did, and the reply. -/
structure Entry where
  /-- The name under which the hook was registered. -/
  hook : String
  label : String
  reply : Reply

/-- What became of a step that is not part of a hook. -/
structure Outcome where
  reply : Reply
  /-- The lines that the step added to the log. -/
  entries : List Entry
  /-- How many hooks the current registry holds after the step. -/
  hooks : Nat

/-- How many dispatches a script may make. -/
structure Bounds where
  /-- How many may be in progress at a time. -/
  nested : Nat
  /-- How many there may be in all. -/
  total : Nat

/-- What the parts of a running script share. -/
structure Notes where
  /-- The handles by name, the latest for a name first. -/
  handles : List (String × Handle)
  /-- For each hook registered, how often its predicate was evaluated. -/
  evaluations : Array Nat
  /-- For each hook registered, how often its callback was run. -/
  runs : Array Nat
  /-- The log of the current step. -/
  entries : Array Entry
  /-- What became of the steps before it. -/
  outcomes : Array Outcome
  /-- How many dispatches are in progress. -/
  nested : Nat
  /-- How many dispatches have been made. -/
  dispatched : Nat

namespace Notes

/-- Nothing has happened yet. -/
def empty : Notes := ⟨[], #[], #[], #[], #[], 0, 0⟩

/-- The handle kept under a name. -/
def handle? (n : Notes) (name : String) : Option Handle := n.handles.lookup name

/-- Keeps a handle under a name. -/
def keep (n : Notes) (name : String) (handle : Handle) : Notes :=
  { n with handles := (name, handle) :: n.handles }

/-- Adds a line to the log. -/
def log (n : Notes) (hook label : String) (reply : Reply) : Notes :=
  { n with entries := n.entries.push ⟨hook, label, reply⟩ }

/-- Begins the counts of a further hook, which are those at index
`n.runs.size`. -/
def enroll (n : Notes) : Notes :=
  { n with evaluations := n.evaluations.push 0, runs := n.runs.push 0 }

/-- Counts an evaluation of a hook's predicate. -/
def countEvaluation (n : Notes) (index : Nat) : Notes :=
  { n with evaluations := n.evaluations.modify index (· + 1) }

/-- Counts a run of a hook's callback, and logs it with the count. -/
def countRun (n : Notes) (index : Nat) (name : String) : Notes :=
  let runs := n.runs.modify index (· + 1)
  { n with runs := runs }.log name "run" (.number (runs.getD index 0))

/-- Whether another dispatch would be one too many. -/
def isBounded (bounds : Bounds) (n : Notes) : Bool :=
  n.nested ≥ bounds.nested || n.dispatched ≥ bounds.total

/-- Counts a dispatch that begins. -/
def enter (n : Notes) : Notes :=
  { n with nested := n.nested + 1, dispatched := n.dispatched + 1 }

/-- Counts a dispatch that has returned. -/
def leave (n : Notes) : Notes := { n with nested := n.nested - 1 }

/-- Closes the log of a step that is not part of a hook. -/
def close (n : Notes) (reply : Reply) (hooks : Nat) : Notes :=
  { n with
    entries := #[]
    outcomes := n.outcomes.push ⟨reply, n.entries.toList, hooks⟩ }

end Notes

end Unwind.Script
