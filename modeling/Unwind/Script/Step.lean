/-
Unwind.Script.Step — the steps of a script against a hook registry.

Hooks and handles go by name in a script. The body of a scripted hook is
itself a list of steps.
-/
import Unwind.Hook.Trigger
import Unwind.Script.Access

namespace Unwind.Script

/-- The word a script uses for the sort of an event. -/
def eventKeyword : Event → String
  | .pc .. => "pc"
  | .buttons .. => "buttons"
  | .ramRead .. => "ram_read"
  | .ramWrite .. => "ram_write"
  | .cartRead .. => "cart_read"
  | .cartWrite .. => "cart_write"

/-- A scripted predicate. -/
inductive Condition
  | always (b : Bool)
  /-- The sort of the event goes by this word. A word that no sort of event
  goes by accepts nothing. -/
  | kind (keyword : String)
  /-- The handle now known by the name belongs to a live hook. -/
  | live (name : String)
  /-- Every so many evaluations. -/
  | every (n : Nat)
  /-- The current registry holds fewer hooks. -/
  | sizeBelow (n : Nat)
  | trigger (t : Trigger)

/-- How a scripted hook decides which events it wants. -/
inductive Watch
  | trigger (t : Trigger)
  /-- A predicate whose evaluations the script's log shows. -/
  | condition (c : Condition)

/-- A step of a script. -/
inductive Step
  | access (a : Access)
  /-- Registers a hook that runs steps, and keeps its handle under a name. -/
  | register (once : Bool) (name : String) (watch : Watch) (actions : List Step)
  | cancel (name : String)
  | isLive (name : String)
  | cookie (name : String)
  /-- Shows a handle. -/
  | display (name : String)
  /-- Keeps a copy of a handle under another name. -/
  | copy (name other : String)
  | dispatch (event : Event)
  /-- Dispatches the event that the running callback got. -/
  | again
  /-- Asks how many hooks the registry holds. -/
  | hooks
  /-- Replaces the registry. -/
  | renew
  /-- Shows the event that the running callback got. -/
  | event
  /-- Carries out the write that the running callback got. -/
  | apply
  | setPc (pc : UInt32)
  | backtrace

/-- The word a script's log shows for a step. -/
def Step.keyword : Step → String
  | access a => a.keyword
  | register false _ (.trigger _) _ => "on"
  | register true _ (.trigger _) _ => "once"
  | register false _ (.condition _) _ => "register"
  | register true _ (.condition _) _ => "register_once"
  | cancel _ => "cancel"
  | isLive _ => "live"
  | cookie _ => "cookie"
  | display _ => "debug"
  | copy .. => "alias"
  | dispatch _ => "dispatch"
  | again => "again"
  | hooks => "hooks"
  | renew => "reset"
  | event => "event"
  | apply => "apply"
  | setPc _ => "set_pc"
  | backtrace => "backtrace"

end Unwind.Script
